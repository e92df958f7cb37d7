import TensorGraph.Proofs.Elementwise

/-!
Constants in the place of data of which only the shape is known.

Operations of numbers say the shape of what they compute before they look at values, and what they
then fold has this shape (`Rules.Decides`). So they succeed on constants where they succeed on data
of the same shapes, with one exception: a product of booleans is refused, and not left unfolded as
other functions of booleans are (`Graph.Applied.gives_constants_iff`).
-/

namespace TensorGraph

open Edit

/-! ### Folded values -/

namespace Grid

variable {α β : Type} [Inhabited α] [Inhabited β] {a g : Grid α} {b k : Grid β}

omit [Inhabited α] [Inhabited β] in
lemma stack_congr (h : g.shape = k.shape) : g.stack = k.stack := by
  unfold stack rank
  rw [h]

lemma shape_matrices_congr (h : g.shape = k.shape) (transpose : Bool) (side : Shape.Side) :
    (g.matrices transpose side).shape = (k.matrices transpose side).shape := by
  by_cases hvector : ∃ n, g.shape = [n]
  · obtain ⟨n, hg⟩ := hvector
    rw [(matrices_vector hg _ _).2, (matrices_vector (h.symm.trans hg) _ _).2]
  · have hg (n : Nat) : g.shape ≠ [n] := fun hn => hvector ⟨n, hn⟩
    rw [matrices_of_ne hg, matrices_of_ne (h ▸ hg)]
    cases transpose
    · exact h
    · exact congrArg swapLast h

/-- Whether the counts of a product fit depends on shapes alone. -/
lemma productFits_congr {c : Grid α} {d : Grid β} (ha : a.shape = b.shape) (hc : c.shape = d.shape)
    {transposeA transposeB : Bool} (hfits : a.ProductFits c transposeA transposeB) :
    b.ProductFits d transposeA transposeB := by
  unfold ProductFits at hfits ⊢
  rwa [← stack_congr (shape_matrices_congr ha _ _), ← stack_congr (shape_matrices_congr hc _ _)]

end Grid

namespace Tensor

variable {a b t : Tensor} {s : Shape} {transposeA transposeB : Bool}

/-- What is known of data for which a constant is given, or of which only its shape is. -/
def fact (t : Tensor) (known : Bool) : Fact := if known then .ofValue t else .ofShape t.dims

lemma shape_fact (t : Tensor) (known : Bool) : (t.fact known).shape = some t.dims := by
  cases known <;> rfl

/-- Two constants are folded or left, never refused, wherever their shapes broadcast. -/
lemma exists_foldBinary_or_none (f : Elementwise.Binary)
    (hs : Shape.broadcast [a.dims, b.dims] = .ok s)
    (hfits : ∀ c : List Nat, s = c.map Int.ofNat → Grid.indexable c = true) :
    ∃ v, a.foldBinary f b s = .ok v ∧ Folds s v := by
  obtain ⟨c, rfl⟩ := Shape.exists_broadcast_nat hs
  have hi := hfits c rfl
  obtain ⟨hsa, hsb⟩ := Shape.stretches_of_broadcast hs
  have hsizes := Grid.toSizes_map fun d hd => Grid.lt_of_indexable hi hd
  have hfolds {t : Tensor} (ht : t.shape = c) : Folds (c.map Int.ofNat) (some t) := by
    rintro _ ⟨⟩
    exact congrArg (List.map Int.ofNat) ht
  have hfloats : ∃ v, (a.toF32.zipStretched f.onFloats b.toF32 (Shape.toSizes (c.map Int.ofNat)) >>=
      fun k => .ok (some (f32 k))) = .ok v ∧ Folds (c.map Int.ofNat) v := by
    rw [hsizes]
    obtain ⟨k, hk, hshape, -⟩ := Grid.exists_zipStretched f.onFloats hi
      (a.shape_toF32.symm ▸ hsa) (b.shape_toF32.symm ▸ hsb)
    exact ⟨some (f32 k), bind_eq_ok.2 ⟨k, hk, rfl⟩, hfolds hshape⟩
  cases a with
  | bool => exact ⟨none, by cases b <;> rfl, folds_none _⟩
  | i64 x =>
    cases b with
    | bool => exact ⟨none, rfl, folds_none _⟩
    | i64 y =>
      obtain ⟨k, hk, hshape, -⟩ := Grid.exists_zipStretched f.onIntegers hi hsa hsb
      exact ⟨some (i64 k), bind_eq_ok.2 ⟨k, hsizes.symm ▸ hk, rfl⟩, hfolds hshape⟩
    | f32 y => exact hfloats
  | f32 x =>
    cases b with
    | bool => exact ⟨none, rfl, folds_none _⟩
    | i64 y | f32 y => exact hfloats

/-- Products of booleans are not formed, unless the right operand is one of floats. -/
def Multipliable (a b : Tensor) : Prop := a.elementType = .bool → b.elementType = .f32

lemma multipliable_of_product (h : a.product b transposeA transposeB = .ok t) :
    a.Multipliable b := by
  intro ha
  cases a with
  | bool x =>
    cases b with
    | bool | i64 => cases h
    | f32 => rfl
  | i64 | f32 => cases ha

/-- Other constants have a product wherever their shapes have. -/
lemma exists_product_of_multipliable (hmul : a.Multipliable b)
    (hs : Shape.product a.dims b.dims transposeA transposeB = .ok s)
    (hfits : a.toI64.ProductFits b.toI64 transposeA transposeB) :
    ∃ t, a.product b transposeA transposeB = .ok t ∧ t.dims = s := by
  unfold product
  split
  · have hfloats : a.toF32.ProductFits b.toF32 transposeA transposeB :=
      Grid.productFits_congr (a.shape_toI64.trans a.shape_toF32.symm)
        (b.shape_toI64.trans b.shape_toF32.symm) hfits
    obtain ⟨c, hc, hdims, -⟩ := Grid.exists_product .floats hfloats
      (s := s) (by rwa [shape_toF32, shape_toF32])
    exact ⟨f32 c, bind_eq_ok.2 ⟨c, hc, rfl⟩, hdims⟩
  · next hfloat =>
    obtain ⟨c, hc, hdims, -⟩ := Grid.exists_product .integers hfits
      (s := s) (by rwa [shape_toI64, shape_toI64])
    cases a with
    | bool x => exact absurd (hmul rfl) fun hb => hfloat (by rw [hb]; rfl)
    | i64 | f32 => exact ⟨i64 c, bind_eq_ok.2 ⟨c, hc, rfl⟩, hdims⟩

/-- What a function of one constant makes of it has the shape of the constant. -/
lemma folds_fact {f : Tensor → Option Tensor} (hf : ∀ v, f t = some v → v.shape = t.shape)
    (known : Bool) : Folds t.dims ((t.fact known).value.bind f) := by
  intro v hv
  cases known with
  | false => cases hv
  | true => exact congrArg (List.map Int.ofNat) (hf v hv)

end Tensor

lemma Scene.Given.fact {s : Scene} {ts : List Tensor} {known : Bool}
    (h : s.Given (ts.map (·.fact known))) {p : Nat} {t : Tensor} (ht : ts[p]? = some t) :
    s.inputShape p = .ok t.dims ∧ s.inputValue p = .ok (t.fact known).value := by
  have hf : (ts.map (·.fact known))[p]? = some (t.fact known) := by rw [List.getElem?_map, ht]; rfl
  exact ⟨h.inputShape hf (t.shape_fact known), h.inputValue hf⟩

/-! ### Rules -/

namespace Rules

/-- What the rule does in the scene hangs on `Q`: it writes a shape that `Q` allows, and at most a
value of this shape with it, and fails if there is no such shape. -/
structure Decides (rule : Rule) (s : Scene) (Q : Shape → Prop) : Prop where
  writes : ∀ shape, Q shape → ∃ v, rule.eval s = .ok ((), shaped 0 shape v) ∧ Folds shape v
  allowed : ∀ ws, rule.eval s = .ok ((), ws) → ∃ shape, Q shape

lemma Decides.congr {rule : Rule} {s : Scene} {Q R : Shape → Prop} (h : Decides rule s Q)
    (hiff : ∀ shape, R shape ↔ Q shape) : Decides rule s R :=
  ⟨fun shape hr => h.writes shape ((hiff shape).1 hr), fun ws hev =>
    (h.allowed ws hev).imp fun shape => (hiff shape).2⟩

variable {s : Scene} {known : Bool} {a b t : Tensor}

section

variable (h : s.Given ([t].map (·.fact known)))

include h

lemma decides_identity : Decides identity s (· = t.dims) := by
  obtain ⟨hshape, hvalue⟩ := h.fact (p := 0) rfl
  refine ⟨?_, fun ws _ => ⟨_, rfl⟩⟩
  rintro _ rfl
  refine ⟨_, eval_identity.2 ⟨_, _, hshape, t.valid_dims, hvalue, rfl⟩, ?_⟩
  have hsame : ∀ v, some t = some v → v.shape = t.shape := fun v hv => by cases hv; rfl
  simpa using Tensor.folds_fact hsame known

lemma decides_unary (f : Elementwise.Unary) : Decides (unary f) s (· = t.dims) := by
  obtain ⟨hshape, hvalue⟩ := h.fact (p := 0) rfl
  refine ⟨?_, fun ws _ => ⟨_, rfl⟩⟩
  rintro _ rfl
  exact ⟨_, eval_unary.2 ⟨_, _, hshape, t.valid_dims, hvalue, rfl⟩,
    Tensor.folds_fact (fun v hv => Tensor.shape_foldUnary hv) known⟩

lemma decides_convert : Decides convert s fun shape => shape = t.dims ∧
    ∃ name type, s.string "destination_type" = .ok name ∧ destinationType name = .ok type := by
  obtain ⟨hshape, hvalue⟩ := h.fact (p := 0) rfl
  refine ⟨?_, fun ws hev => ?_⟩
  · rintro _ ⟨rfl, name, type, hname, htype⟩
    refine ⟨_, eval_convert.2 ⟨name, type, _, _, hname, htype, hshape, t.valid_dims, hvalue, rfl⟩,
      ?_⟩
    have hcast : ∀ v, some (t.cast type) = some v → v.shape = t.shape := fun v hv => by
      cases hv
      exact t.shape_cast type
    rw [Option.map_eq_bind]
    exact Tensor.folds_fact hcast known
  · obtain ⟨name, type, -, -, hname, htype, -⟩ := eval_convert.1 hev
    exact ⟨_, rfl, name, type, hname, htype⟩

end

section

variable (h : s.Given ([a, b].map (·.fact known)))

include h

lemma decides_binary (f : Elementwise.Binary)
    (hfits : ∀ c : List Nat, Shape.broadcast [a.dims, b.dims] = .ok (c.map Int.ofNat) →
      Grid.indexable c = true) :
    Decides (binary f) s fun shape => Shape.broadcast [a.dims, b.dims] = .ok shape := by
  obtain ⟨hshape₀, hvalue₀⟩ := h.fact (p := 0) rfl
  obtain ⟨hshape₁, hvalue₁⟩ := h.fact (p := 1) rfl
  refine ⟨fun shape hshape => ?_, fun ws hev => ?_⟩
  · obtain ⟨v, hv, hfolds⟩ : ∃ v, foldBoth f shape (a.fact known).value (b.fact known).value =
        .ok v ∧ Folds shape v := by
      cases known with
      | false => exact ⟨none, rfl, folds_none shape⟩
      | true => exact Tensor.exists_foldBinary_or_none f hshape fun c hc => hfits c (hc ▸ hshape)
    have hvalid : shape.Valid := by
      refine Shape.broadcast_of (P := (-1 ≤ ·)) (by decide) ?_ hshape
      simp only [List.mem_cons, List.not_mem_nil, or_false, forall_eq_or_imp, forall_eq]
      exact ⟨a.valid_dims, b.valid_dims⟩
    exact ⟨v, eval_binary.2 ⟨_, _, shape, _, _, v, hshape₀, hshape₁, hshape, hvalid, hvalue₀,
      hvalue₁, hv, rfl⟩, hfolds⟩
  · obtain ⟨_, _, shape, -, -, -, h₀, h₁, hshape, -⟩ := eval_binary.1 hev
    cases h₀.symm.trans hshape₀
    cases h₁.symm.trans hshape₁
    exact ⟨shape, hshape⟩

lemma decides_product
    (hfits : ∀ tA tB, s.bool "transpose_a" = .ok tA → s.bool "transpose_b" = .ok tB →
      a.toI64.ProductFits b.toI64 tA tB) :
    Decides product s fun shape => (known = true → a.Multipliable b) ∧
      ∃ tA tB, s.bool "transpose_a" = .ok tA ∧ s.bool "transpose_b" = .ok tB ∧
        Shape.product a.dims b.dims tA tB = .ok shape := by
  obtain ⟨hshape₀, hvalue₀⟩ := h.fact (p := 0) rfl
  obtain ⟨hshape₁, hvalue₁⟩ := h.fact (p := 1) rfl
  refine ⟨fun shape => ?_, fun ws hev => ?_⟩
  · rintro ⟨hmul, tA, tB, htA, htB, hshape⟩
    obtain ⟨v, hv, hfolds⟩ : ∃ v, bothValues (·.product · tA tB) (a.fact known).value
        (b.fact known).value = .ok v ∧ Folds shape v := by
      cases known with
      | false => exact ⟨none, rfl, folds_none shape⟩
      | true =>
        obtain ⟨t, ht, hdims⟩ :=
          Tensor.exists_product_of_multipliable (hmul rfl) hshape (hfits tA tB htA htB)
        refine ⟨some t, map_eq_ok.2 ⟨t, ht, rfl⟩, ?_⟩
        rintro _ ⟨⟩
        exact hdims
    have hvalid : shape.Valid :=
      Shape.product_of (P := (-1 ≤ ·)) (by decide) a.valid_dims b.valid_dims hshape
    exact ⟨v, eval_product.2 ⟨tA, tB, _, _, shape, _, _, v, htA, htB, hshape₀, hshape₁, hshape,
      hvalid, hvalue₀, hvalue₁, hv, rfl⟩, hfolds⟩
  · obtain ⟨tA, tB, _, _, shape, _, _, v, htA, htB, h₀, h₁, hshape, -, h₂, h₃, hv, -⟩ :=
      eval_product.1 hev
    cases h₀.symm.trans hshape₀
    cases h₁.symm.trans hshape₁
    cases h₂.symm.trans hvalue₀
    cases h₃.symm.trans hvalue₁
    refine ⟨shape, ?_, tA, tB, htA, htB, hshape⟩
    rintro rfl
    obtain ⟨t, ht, -⟩ := map_eq_ok.1 hv
    exact Tensor.multipliable_of_product ht

end

end Rules

/-! ### Operations -/

/-- An attribute that says yes or no, and no where it is not set. -/
def Operation.flag? (o : Operation) (name : String) : Option Bool :=
  ((o.attributes.find? name).or (some (.bool false))).bind (·.toBool?)

lemma Scene.bool_iff_flag? {s : Scene} {o : Operation} {name : String} {x : Bool}
    (h : s.attr? name = (o.attributes.find? name).or (some (.bool false))) :
    s.bool name = .ok x ↔ o.flag? name = some x := by
  unfold Operation.flag?
  rw [← h]
  exact Scene.typed_eq_ok

/-- An operation of numbers, with as many operands as it takes. The counts of elements of what is
computed of two of them fit. -/
inductive Numeric (o : Operation) : List Tensor → Prop
  | identity {t : Tensor} (hkind : o.kind = "Identity") : Numeric o [t]
  | convert {t : Tensor} (hkind : o.kind = "Convert") : Numeric o [t]
  | unary {t : Tensor} (f : Elementwise.Unary) (hkind : (o.kind, f) ∈ unaryKinds) : Numeric o [t]
  | binary {a b : Tensor} (f : Elementwise.Binary) (hkind : (o.kind, f) ∈ binaryKinds)
      (hfits : ∀ c : List Nat, Shape.broadcast [a.dims, b.dims] = .ok (c.map Int.ofNat) →
        Grid.indexable c = true) : Numeric o [a, b]
  | product {a b : Tensor} (hkind : o.kind = "MatMul")
      (hfits : ∀ tA tB, o.flag? "transpose_a" = some tA → o.flag? "transpose_b" = some tB →
        a.toI64.ProductFits b.toI64 tA tB) : Numeric o [a, b]

/-- The operation is a product of constants that are not multiplied. -/
def Operation.Refuses (o : Operation) : List Tensor → Prop
  | [a, b] => o.kind = "MatMul" ∧ ¬a.Multipliable b
  | _ => False

/-- Functions of one and of two operands are registered under their kinds. -/
lemma OpEntry.find?_unary {kind : String} {f : Elementwise.Unary} (h : (kind, f) ∈ unaryKinds) :
    standard.reverse.find? (·.kind = kind) = some (.ofRule kind (Rules.unary f)) := by
  simp only [unaryKinds, List.mem_cons, List.not_mem_nil, or_false, Prod.mk.injEq] at h
  rcases h with h | h | h | h | h | h | h | h | h <;> obtain ⟨rfl, rfl⟩ := h <;> rfl

lemma OpEntry.find?_binary {kind : String} {f : Elementwise.Binary} (h : (kind, f) ∈ binaryKinds) :
    standard.reverse.find? (·.kind = kind) = some (.ofRule kind (Rules.binary f)) ∧
      kind ≠ "MatMul" := by
  simp only [binaryKinds, List.mem_cons, List.not_mem_nil, or_false, Prod.mk.injEq] at h
  rcases h with h | h | h | h <;> obtain ⟨rfl, rfl⟩ := h <;> exact ⟨rfl, by decide⟩

/-- What an operation of numbers does hangs on the shapes of its operands and on its attributes, and
a product on whether its operands are multiplied. -/
lemma Numeric.exists_decides {o : Operation} {ts : List Tensor} (hn : Numeric o ts) :
    ∃ (entry : OpEntry) (Q : Shape → Prop),
      OpEntry.standard.reverse.find? (·.kind = o.kind) = some entry ∧
      ∀ (s : Scene) (known : Bool), s.Given (ts.map (·.fact known)) →
        (∀ name, s.attr? name = (o.attributes.find? name).or (entry.defaults.find? name)) →
        Rules.Decides entry.rule s fun shape => (known = true → ¬o.Refuses ts) ∧ Q shape := by
  have hone {t : Tensor} (known : Bool) : known = true → ¬o.Refuses [t] := fun _ h => h
  cases hn with
  | @identity t hkind =>
    refine ⟨.ofRule "Identity" Rules.identity, (· = t.dims), by rw [hkind]; rfl,
      fun s known hs _ => ?_⟩
    exact (Rules.decides_identity hs).congr fun _ => and_iff_right (hone known)
  | @convert t hkind =>
    refine ⟨(OpEntry.ofRule "Convert" Rules.convert).requiring ["destination_type"],
      fun shape => shape = t.dims ∧ ∃ name type,
        (o.attributes.find? "destination_type").bind (·.toString?) = some name ∧
          Rules.destinationType name = .ok type,
      by rw [hkind]; rfl, fun s known hs hattr => ?_⟩
    have hstring (name : String) : s.string "destination_type" = .ok name ↔
        (o.attributes.find? "destination_type").bind (·.toString?) = some name := by
      refine Scene.typed_eq_ok.trans ?_
      rw [hattr]
      exact iff_of_eq (congrArg (fun x => Option.bind x _ = _) Option.or_none)
    refine (Rules.decides_convert hs).congr fun _ => ?_
    simp only [hstring]
    exact and_iff_right (hone known)
  | @unary t f hkind =>
    refine ⟨_, (· = t.dims), OpEntry.find?_unary hkind, fun s known hs _ => ?_⟩
    exact (Rules.decides_unary hs f).congr fun _ => and_iff_right (hone known)
  | @binary a b f hkind hfits =>
    obtain ⟨hentry, hne⟩ := OpEntry.find?_binary hkind
    refine ⟨_, fun shape => Shape.broadcast [a.dims, b.dims] = .ok shape, hentry,
      fun s known hs _ => ?_⟩
    exact (Rules.decides_binary hs f hfits).congr fun _ => and_iff_right fun _ h => hne h.1
  | @product a b hkind hfits =>
    refine ⟨_, fun shape => ∃ tA tB, o.flag? "transpose_a" = some tA ∧
      o.flag? "transpose_b" = some tB ∧ Shape.product a.dims b.dims tA tB = .ok shape,
      by rw [hkind]; rfl, fun s known hs hattr => ?_⟩
    have hA (x : Bool) := Scene.bool_iff_flag? (x := x) (hattr "transpose_a")
    have hB (x : Bool) := Scene.bool_iff_flag? (x := x) (hattr "transpose_b")
    refine (Rules.decides_product hs fun tA tB htA htB =>
      hfits tA tB ((hA tA).1 htA) ((hB tB).1 htB)).congr fun shape => ?_
    simp only [hA, hB, Operation.Refuses, hkind, true_and, not_not]

namespace Graph

variable {g g' h : Graph} {id id' d : NodeId} {o o' : Operation} {rule : Rule} {s : Scene}
  {Q : Shape → Prop}

/-- An operation whose rule hangs on the shapes that `Q` allows is inferred if there is one. -/
lemma Follows.gives_of_decides (hf : g.Follows id rule s) (hd : Rules.Decides rule s Q) :
    (∃ changed h, Gives (Registry.standard.inferNode id) g changed h) ↔ ∃ shape, Q shape := by
  refine hf.gives_iff.trans ⟨fun ⟨ws, hev⟩ => hd.allowed ws hev, fun ⟨shape, hq⟩ => ?_⟩
  obtain ⟨v, hev, -⟩ := hd.writes shape hq
  exact ⟨_, hev⟩

/-- Its output has any of these shapes, so that there is only one. -/
lemma Follows.shape_of_decides (hf : g.Follows id rule s) (hd : Rules.Decides rule s Q)
    {facts : List Fact} (ha : g.Applied id o facts) {shape : Shape} (hq : Q shape)
    {changed : List NodeId} (hx : Gives (Registry.standard.inferNode id) g changed h)
    (hout : g.Output id 0 d) : (h.fact? d).bind (·.shape) = some shape := by
  obtain ⟨v, hev, hfolds⟩ := hd.writes shape hq
  have hfact : h.fact? d = some (Fact.known shape v) := by
    refine hf.fact?_output ha hev hx (fun f' => ?_) hout
    rw [portFact_shaped, if_pos rfl]
  rw [hfact]
  exact hfolds.shape

/-- **Folding never fails**: as far as the counts of elements fit, inferring an operation of numbers
on constants succeeds exactly when it does on data of which only the same shapes are known, and says
the same shape of its output, but for products whose left operand is one of booleans and whose right
one is not one of floats. These are refused. -/
theorem Applied.gives_constants_iff {ts : List Tensor} (hn : Numeric o ts)
    (ha : g.Applied id o (ts.map .ofValue))
    (ha' : g'.Applied id' o' (ts.map (.ofShape ·.dims))) (hkind : o'.kind = o.kind)
    (hattributes : o'.attributes = o.attributes) :
    ((∃ changed h, Gives (Registry.standard.inferNode id) g changed h) ↔ ¬o.Refuses ts ∧
      ∃ changed h, Gives (Registry.standard.inferNode id') g' changed h) ∧
    ∀ changed h changed' h', Gives (Registry.standard.inferNode id) g changed h →
      Gives (Registry.standard.inferNode id') g' changed' h' → ∃ shape,
        (∀ d, g.Output id 0 d → (h.fact? d).bind (·.shape) = some shape) ∧
        ∀ d, g'.Output id' 0 d → (h'.fact? d).bind (·.shape) = some shape := by
  obtain ⟨entry, Q, hentry, hdecides⟩ := hn.exists_decides
  by_cases hrequired : (entry.required.find? fun name => !o.attributes.contains name) = none
  · obtain ⟨s, hgiven, hfollows, hattr⟩ := ha.follows hentry hrequired (by simp [Fact.ofValue])
    obtain ⟨s', hgiven', hfollows', hattr'⟩ :=
      ha'.follows (hkind ▸ hentry) (hattributes ▸ hrequired) (by simp [Fact.ofShape])
    have hd := hdecides s true hgiven hattr
    have hd' := hdecides s' false hgiven' (hattributes ▸ hattr')
    refine ⟨?_, fun changed h changed' h' hx hx' => ?_⟩
    · rw [hfollows.gives_of_decides hd, hfollows'.gives_of_decides hd']
      simp
    · obtain ⟨shape, hq⟩ := (hfollows.gives_of_decides hd).1 ⟨changed, h, hx⟩
      have hq' : (false = true → ¬o.Refuses ts) ∧ Q shape :=
        ⟨fun hknown => absurd hknown Bool.false_ne_true, hq.2⟩
      exact ⟨shape, fun d hout => hfollows.shape_of_decides hd ha hq hx hout,
        fun d hout => hfollows'.shape_of_decides hd' ha' hq' hx' hout⟩
  · -- an attribute is missing, and inference fails on either side
    have hfails := ha.not_gives hentry hrequired
    have hfails' := ha'.not_gives (hkind ▸ hentry) (hattributes ▸ hrequired)
    exact ⟨iff_of_false hfails fun hx => hfails' hx.2,
      fun changed h _ _ hx => absurd ⟨changed, h, hx⟩ hfails⟩

end Graph

/-- The product of two operands, which an edit adds under their names. -/
def productOf (operand : String → Edit NodeId) : Edit Unit := do
  let a ← operand "a"
  let b ← operand "b"
  discard (wire "y" (.ofKind "MatMul") [a, b])

/-- A matrix of one element, which says yes. -/
def oneTrue : Tensor := .bool (.fill [1, 1] true)

lemma productFits_oneTrue : oneTrue.toI64.ProductFits oneTrue.toI64 false false := by
  intro batch hbatch
  obtain rfl : [] = batch :=
    List.map_injective_iff.2 (fun _ _ => Int.ofNat.inj) (Except.ok.inj hbatch)
  decide

/-- Matrices of one boolean have no product, although matrices of their shapes have one. -/
theorem gives_constants_iff_oneTrue :
    let g := ((productOf fun name => addConst name oneTrue).run ∅).graph
    let g' := ((productOf fun name => addParameter name [1, 1]).run ∅).graph
    (¬∃ changed h, Gives (Registry.standard.inferNode ⟨4⟩) g changed h) ∧
      ∃ changed h, Gives (Registry.standard.inferNode ⟨4⟩) g' changed h := by
  intro g g'
  have hg : g.WellFormed := by decide +kernel
  have hg' : g'.WellFormed := by decide +kernel
  have hapart : g.Apart ⟨4⟩ ∧ g'.Apart ⟨4⟩ := by
    unfold Graph.Apart
    decide +kernel
  have ha : g.Applied ⟨4⟩ (.ofKind "MatMul") ([oneTrue, oneTrue].map .ofValue) :=
    .of_incoming hg hapart.1 rfl rfl rfl rfl
  have ha' : g'.Applied ⟨4⟩ (.ofKind "MatMul") ([oneTrue, oneTrue].map (.ofShape ·.dims)) :=
    .of_incoming hg' hapart.2 rfl rfl rfl rfl
  have hn : Numeric (.ofKind "MatMul") [oneTrue, oneTrue] := by
    refine .product rfl fun tA tB hA hB => ?_
    cases hA
    cases hB
    exact productFits_oneTrue
  refine ⟨fun hx => ?_, ?_⟩
  · have hrefused := ((ha.gives_constants_iff hn ha' rfl rfl).1.1 hx).1
    exact hrefused ⟨rfl, fun hmul => by cases hmul rfl⟩
  · obtain ⟨s, hgiven, hfollows, hattr⟩ := ha'.follows rfl rfl (by simp [Fact.ofShape])
    have hA : s.bool "transpose_a" = .ok false := (Scene.bool_iff_flag? (hattr _)).2 rfl
    have hB : s.bool "transpose_b" = .ok false := (Scene.bool_iff_flag? (hattr _)).2 rfl
    have hshapes : s.Given ([oneTrue, oneTrue].map (·.fact false)) := hgiven
    have hd := Rules.decides_product hshapes fun tA tB htA htB => by
      cases hA.symm.trans htA
      cases hB.symm.trans htB
      exact productFits_oneTrue
    exact (hfollows.gives_of_decides hd).2 ⟨[1, 1],
      fun hknown => absurd hknown Bool.false_ne_true, false, false, hA, hB, rfl⟩

end TensorGraph
